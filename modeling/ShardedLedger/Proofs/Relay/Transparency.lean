import ShardedLedger.Proofs.Relay.Sharding

namespace ShardedLedger

-- A request and what came of it.
structure Exchange where
  request : RelayRequest
  outcome : Except RelayError ShardReply

namespace Exchange

-- Where the shards can be reached, a request that is handed on stays without a reply only if it
-- overflows.
def isAnswered (exchange : Exchange) : Bool :=
  match exchange.outcome with
  | .ok _ => true
  | .error (.unresolved _ _) => true
  | .error (.unavailable _) => false
  | .error (.noReplies _ _) => false

theorem isAnswered_gathered_iff (request : RelayRequest) (arrived : List ShardReply) :
    isAnswered ⟨request, Relay.gathered request arrived⟩ = true ↔ arrived ≠ [] := by
  rw [Ne, ← ShardReply.merge_eq_none_iff]
  cases h : ShardReply.merge arrived <;> simp [Relay.gathered, isAnswered, h]

-- The same reply or the same error, but for the order in which a listing has its names.
inductive Agrees (paths : Paths) : Exchange → Exchange → Prop where
  | same {request : RelayRequest} {outcome : Except RelayError ShardReply}
      (hrequest : ¬request.IsListing paths) : Agrees paths ⟨request, outcome⟩ ⟨request, outcome⟩
  | listing {request : RelayRequest} {names others : List String}
      (hrequest : request.IsListing paths) (hperm : names.Perm others) (hnodup : names.Nodup) :
      Agrees paths ⟨request, .ok (.names names)⟩ ⟨request, .ok (.names others)⟩

end Exchange

namespace Cluster

section Agreement

variable {apiPrefix : String} {ledger : Ledger} {cluster one : Cluster} {request : RelayRequest}
  {outcome other : Except RelayError ShardReply}

-- Two clusters that hold one ledger list the same names, whatever their numbers of shards.
theorem agrees_of_names (h : cluster.Holds apiPrefix ledger) (hone : one.Holds apiPrefix ledger)
    (hreply : cluster.MayReply request outcome) (hother : one.MayReply request other)
    (hlisting : request.IsListing (.below apiPrefix)) (list : Ledger → List Key)
    (hnodup : (list ledger).Nodup)
    (hlist : ∀ {slots : Nat} (slotOf : String → Fin slots),
      ((ledger.split slotOf).flatMap list).Perm (list ledger))
    (hsteady : ∀ part : Ledger, part.reply apiPrefix request.toRequest =
      (part, some (.names ((list part).map (·.text))))) :
    Exchange.Agrees (.below apiPrefix) ⟨request, outcome⟩ ⟨request, other⟩ ∧
      (cluster.request request).1.Holds apiPrefix ledger ∧
      (one.request request).1.Holds apiPrefix ledger := by
  have hparent := RelayRequest.parent?_of_isListing hlisting
  have hnames {cluster : Cluster} {outcome : Except RelayError ShardReply}
      (h : cluster.Holds apiPrefix ledger) (hreply : cluster.MayReply request outcome) :
      ∃ names, outcome = .ok (.names names) ∧ names.Perm ((list ledger).map (·.text)) := by
    obtain ⟨arrived, horder, rfl⟩ := hreply.exists_order (h.parent_eq_ok hparent)
    rw [(h.request_of_all hparent hsteady).2] at horder
    exact gathered_names list (hlist cluster.relay.table.slotFor)
      (List.filterMap_eq_map ▸ horder)
  obtain ⟨names, rfl, hperm⟩ := hnames h hreply
  obtain ⟨others, rfl, hothers⟩ := hnames hone hother
  have htexts : ((list ledger).map (·.text)).Nodup :=
    hnodup.map fun a b hab => Key.ext_toList (congrArg String.toList hab)
  exact ⟨.listing hlisting (hperm.trans hothers.symm) (hperm.nodup_iff.mpr htexts),
    (h.request_of_all hparent hsteady).1, (hone.request_of_all hparent hsteady).1⟩

theorem agrees_of_summary (h : cluster.Holds apiPrefix ledger) (hone : one.Holds apiPrefix ledger)
    (hreply : cluster.MayReply request outcome) (hother : one.MayReply request other)
    (hparent : request.parent? (.below apiPrefix) = some allAccounts)
    (hlisting : ¬request.IsListing (.below apiPrefix)) {whole : SortedMap String Summary}
    (hwhole : ledger.globalSummary = .ok whole)
    (hsteady : ∀ part : Ledger, part.reply apiPrefix request.toRequest =
      (part, part.globalSummary.toOption.map .summaries)) :
    Exchange.Agrees (.below apiPrefix) ⟨request, outcome⟩ ⟨request, other⟩ ∧
      (cluster.request request).1.Holds apiPrefix ledger ∧
      (one.request request).1.Holds apiPrefix ledger := by
  have hmerged {cluster : Cluster} {outcome : Except RelayError ShardReply}
      (h : cluster.Holds apiPrefix ledger) (hreply : cluster.MayReply request outcome) :
      outcome =
        .ok ⟨200, .text (Json.ofMap (fun summary => summary.toJson.asRead) whole).print⟩ := by
    obtain ⟨arrived, horder, rfl⟩ := hreply.exists_order (h.parent_eq_ok hparent)
    rw [(h.request_of_all hparent hsteady).2] at horder
    exact gathered_summaries hwhole horder
  rw [hmerged h hreply, hmerged hone hother]
  exact ⟨.same hlisting, (h.request_of_all hparent hsteady).1,
    (hone.request_of_all hparent hsteady).1⟩

theorem agrees_of_unresolved (h : cluster.Holds apiPrefix ledger)
    (hone : one.Holds apiPrefix ledger) (hreply : cluster.MayReply request outcome)
    (hother : one.MayReply request other)
    (hparent : request.parent? (.below apiPrefix) = none) :
    Exchange.Agrees (.below apiPrefix) ⟨request, outcome⟩ ⟨request, other⟩ ∧
      (cluster.request request).1.Holds apiPrefix ledger ∧
      (one.request request).1.Holds apiPrefix ledger := by
  have herror := h.parent_eq_error hparent
  have herrorOne := hone.parent_eq_error hparent
  have hlisting : ¬request.IsListing (.below apiPrefix) :=
    mt RelayRequest.parent?_of_isListing (by rw [hparent]; nofun)
  have hdirect := hreply.eq_of_ne_all (by rw [herror]; nofun)
  have hdirectOne := hother.eq_of_ne_all (by rw [herrorOne]; nofun)
  rw [request_of_error herror] at hdirect ⊢
  rw [request_of_error herrorOne] at hdirectOne ⊢
  subst hdirect hdirectOne
  exact ⟨.same hlisting, h, hone⟩

theorem agrees_of_root (h : cluster.Holds apiPrefix ledger) (hone : one.Holds apiPrefix ledger)
    (hplain : request.IsPlain (.below apiPrefix)) (hreply : cluster.MayReply request outcome)
    (hother : one.MayReply request other) {root : String}
    (hparent : request.parent? (.below apiPrefix) = some root) (hroot : root ≠ allAccounts)
    (hreplied : (ledger.reply apiPrefix request.toRequest).2.isSome = true) :
    Exchange.Agrees (.below apiPrefix) ⟨request, outcome⟩ ⟨request, other⟩ ∧
      ∃ after, (cluster.request request).1.Holds apiPrefix after ∧
        (one.request request).1.Holds apiPrefix after := by
  obtain ⟨reply, hshard⟩ := Option.isSome_iff_exists.mp hreplied
  have houtcome {cluster : Cluster} {outcome : Except RelayError ShardReply}
      (h : cluster.Holds apiPrefix ledger) (hreply : cluster.MayReply request outcome) :
      outcome = .ok reply := by
    obtain ⟨_, endpoint, houtcome⟩ := h.request_of_root hplain hparent hroot
    rw [hreply.eq_of_ne_all (h.parent_ne_all hparent hroot), houtcome, hshard]
    rfl
  have hlisting : ¬request.IsListing (.below apiPrefix) :=
    mt RelayRequest.parent?_of_isListing (by rw [hparent]; exact hroot ∘ Option.some.inj)
  rw [houtcome h hreply, houtcome hone hother]
  exact ⟨.same hlisting, _, (h.request_of_root hplain hparent hroot).1,
    (hone.request_of_root hplain hparent hroot).1⟩

theorem agrees_of_all (h : cluster.Holds apiPrefix ledger) (hone : one.Holds apiPrefix ledger)
    (hplain : request.IsPlain (.below apiPrefix)) (hreply : cluster.MayReply request outcome)
    (hother : one.MayReply request other)
    (hparent : request.parent? (.below apiPrefix) = some allAccounts)
    (hreplied : (ledger.reply apiPrefix request.toRequest).2.isSome = true) :
    Exchange.Agrees (.below apiPrefix) ⟨request, outcome⟩ ⟨request, other⟩ ∧
      (cluster.request request).1.Holds apiPrefix ledger ∧
      (one.request request).1.Holds apiPrefix ledger := by
  obtain ⟨hmethod, hglobal⟩ := hplain.get_of_all hparent
  obtain ⟨body, hbody⟩ := hplain.exists_text
  have hget : request.method = "GET" := Method.eq_name_of_ofName? hmethod
  rcases (Paths.isGlobal_iff _ _).mp hglobal with hpath | hpath | hpath
  · exact agrees_of_names h hone hreply hother ⟨hget, .inl hpath⟩ Ledger.keys ledger.nodup_keys
      (Ledger.flatMap_keys_split ledger)
      fun part => Ledger.reply_accounts part hmethod hbody hpath
  · exact agrees_of_names h hone hreply hother ⟨hget, .inr hpath⟩ Ledger.activeKeys
      ledger.nodup_activeKeys (Ledger.flatMap_activeKeys_split ledger)
      fun part => Ledger.reply_activeAccounts part hmethod hbody hpath
  · have hlisting : ¬request.IsListing (.below apiPrefix) := by
      rintro ⟨_, hother | hother⟩
      · exact Paths.append_ne _ (by decide) (hpath.symm.trans hother)
      · exact Paths.append_ne _ (by decide) (hpath.symm.trans hother)
    rw [Ledger.reply_summary ledger hmethod hbody hpath] at hreplied
    cases hwhole : ledger.globalSummary with
    | error overflow =>
        rw [hwhole] at hreplied
        cases hreplied
    | ok whole =>
        exact agrees_of_summary h hone hreply hother hparent hlisting hwhole
          fun part => Ledger.reply_summary part hmethod hbody hpath

-- What comes of a request is the same for two clusters that hold one ledger, and they go on to
-- hold one ledger.
theorem agrees_of_holds (h : cluster.Holds apiPrefix ledger) (hone : one.Holds apiPrefix ledger)
    (hplain : request.IsPlain (.below apiPrefix)) (hreply : cluster.MayReply request outcome)
    (hother : one.MayReply request other)
    (hreplied : ∀ root, request.parent? (.below apiPrefix) = some root →
      (ledger.reply apiPrefix request.toRequest).2.isSome = true) :
    Exchange.Agrees (.below apiPrefix) ⟨request, outcome⟩ ⟨request, other⟩ ∧
      ∃ after, (cluster.request request).1.Holds apiPrefix after ∧
        (one.request request).1.Holds apiPrefix after := by
  cases hparent : request.parent? (.below apiPrefix) with
  | none =>
      obtain ⟨hagrees, hafter⟩ := agrees_of_unresolved h hone hreply hother hparent
      exact ⟨hagrees, ledger, hafter⟩
  | some root =>
      have hreplied := hreplied root hparent
      by_cases hroot : root = allAccounts
      · subst hroot
        obtain ⟨hagrees, hafter⟩ := agrees_of_all h hone hplain hreply hother hparent hreplied
        exact ⟨hagrees, ledger, hafter⟩
      · exact agrees_of_root h hone hplain hreply hother hparent hroot hreplied

-- With a single shard nothing but an overflow of its ledger leaves a request unanswered.
theorem isAnswered_iff (hone : one.Holds apiPrefix ledger) (hsize : one.relay.table.size = 1)
    (hplain : request.IsPlain (.below apiPrefix)) (hother : one.MayReply request other) :
    Exchange.isAnswered ⟨request, other⟩ = true ↔
      ∀ root, request.parent? (.below apiPrefix) = some root →
        (ledger.reply apiPrefix request.toRequest).2.isSome = true := by
  cases hparent : request.parent? (.below apiPrefix) with
  | none =>
      have herror := hone.parent_eq_error hparent
      have hdirect := hother.eq_of_ne_all (by rw [herror]; nofun)
      rw [request_of_error herror] at hdirect
      simp [hdirect, Exchange.isAnswered]
  | some root =>
      by_cases hroot : root = allAccounts
      · subst hroot
        obtain ⟨hmethod, hglobal⟩ := hplain.get_of_all hparent
        obtain ⟨body, hbody⟩ := hplain.exists_text
        have hsteady (part : Ledger) : part.reply apiPrefix request.toRequest =
            (part, (part.reply apiPrefix request.toRequest).2) :=
          Prod.ext (Ledger.reply_fst_of_isGlobal part hmethod hbody hglobal) rfl
        obtain ⟨arrived, horder, rfl⟩ := hother.exists_order (hone.parent_eq_ok hparent)
        rw [(hone.request_of_all hparent hsteady).2, Ledger.split_of_eq_one _ _ hsize,
          List.filterMap_cons, List.filterMap_nil] at horder
        rw [Exchange.isAnswered_gathered_iff]
        cases hshard : (ledger.reply apiPrefix request.toRequest).2 with
        | none =>
            rw [hshard] at horder
            simp [List.perm_nil.mp horder]
        | some reply =>
            rw [hshard] at horder
            simp [List.perm_singleton.mp horder]
      · obtain ⟨hafter, endpoint, houtcome⟩ := hone.request_of_root hplain hparent hroot
        rw [hother.eq_of_ne_all (hone.parent_ne_all hparent hroot), houtcome]
        cases (ledger.reply apiPrefix request.toRequest).2 <;> simp [Exchange.isAnswered]

end Agreement

section Run

variable {apiPrefix : String} {cluster one final oneFinal : Cluster}
  {exchanges others : List Exchange}

-- Requests that are sent one after another, with what comes of each.
inductive Serves : Cluster → List Exchange → Cluster → Prop where
  | nil {cluster : Cluster} : Serves cluster [] cluster
  | cons {cluster final : Cluster} {exchange : Exchange} {exchanges : List Exchange}
      (hreply : cluster.MayReply exchange.request exchange.outcome)
      (hrest : Serves (cluster.request exchange.request).1 exchanges final) :
      Serves cluster (exchange :: exchanges) final

-- Sends the requests one after another; the replies of a fan-out arrive in the order of the slots.
def run : Cluster → List RelayRequest → Cluster × List Exchange
  | cluster, [] => (cluster, [])
  | cluster, request :: requests =>
      let (after, outcome) := cluster.request request
      let (final, exchanges) := run after requests
      (final, ⟨request, outcome⟩ :: exchanges)

theorem serves_run (cluster : Cluster) (requests : List RelayRequest) :
    cluster.Serves (cluster.run requests).2 (cluster.run requests).1 := by
  induction requests generalizing cluster with
  | nil => exact .nil
  | cons request requests ih => exact .cons (mayReply_request cluster request) (ih _)

theorem map_request_run (cluster : Cluster) (requests : List RelayRequest) :
    (cluster.run requests).2.map (·.request) = requests := by
  induction requests generalizing cluster with
  | nil => rfl
  | cons request requests ih => exact congrArg (request :: ·) (ih _)

theorem agrees_of_serves {ledger : Ledger} (h : cluster.Holds apiPrefix ledger)
    (hone : one.Holds apiPrefix ledger) (hsize : one.relay.table.size = 1)
    (hplain : ∀ exchange ∈ exchanges, exchange.request.IsPlain (.below apiPrefix))
    (hserves : cluster.Serves exchanges final) (hserved : one.Serves others oneFinal)
    (hrequests : exchanges.map (·.request) = others.map (·.request))
    (hanswered : ∀ exchange ∈ others, exchange.isAnswered = true) :
    List.Forall₂ (Exchange.Agrees (.below apiPrefix)) exchanges others ∧
      oneFinal.relay.table.size = 1 ∧
      ∃ after, final.Holds apiPrefix after ∧ oneFinal.Holds apiPrefix after := by
  induction hserves generalizing ledger one others with
  | nil =>
      cases others with
      | nil =>
          cases hserved
          exact ⟨.nil, hsize, ledger, h, hone⟩
      | cons => cases hrequests
  | @cons cluster final exchange exchanges hreply hrest ih =>
      cases others with
      | nil => cases hrequests
      | cons other others =>
          rw [List.map_cons, List.map_cons, List.cons.injEq] at hrequests
          obtain ⟨hsame, hrequests⟩ := hrequests
          obtain ⟨request, outcome⟩ := exchange
          obtain ⟨_, otherOutcome⟩ := other
          cases hsame
          cases hserved with
          | cons hother hserved =>
              have hrequest := hplain ⟨request, outcome⟩ (by simp)
              have hreplied := (isAnswered_iff hone hsize hrequest hother).mp
                (hanswered ⟨request, otherOutcome⟩ (by simp))
              obtain ⟨hagrees, after, hafter, hafterOne⟩ :=
                agrees_of_holds h hone hrequest hreply hother hreplied
              have hsizeAfter : (one.request request).1.relay.table.size = 1 := by
                rw [(request_frame one request).2.1, hsize]
              obtain ⟨hrestAgrees, hfinal⟩ := ih hafter hafterOne hsizeAfter
                (fun exchange hexchange => hplain exchange (List.mem_cons_of_mem _ hexchange))
                hserved hrequests
                (fun exchange hexchange => hanswered exchange (List.mem_cons_of_mem _ hexchange))
              exact ⟨.cons hagrees hrestAgrees, hfinal⟩

-- However many shards there are, their clients cannot tell them from a single one, and what the
-- single one would hold is spread over them. Whatever a run begins with is a run as well, so this
-- is so all along.
theorem agrees_with_one_shard (hfresh : cluster.IsFresh apiPrefix) (hone : one.IsFresh apiPrefix)
    (hsize : one.relay.table.size = 1)
    (hplain : ∀ exchange ∈ exchanges, exchange.request.IsPlain (.below apiPrefix))
    (hserves : cluster.Serves exchanges final) (hserved : one.Serves others oneFinal)
    (hrequests : exchanges.map (·.request) = others.map (·.request))
    (hanswered : ∀ exchange ∈ others, exchange.isAnswered = true) :
    List.Forall₂ (Exchange.Agrees (.below apiPrefix)) exchanges others ∧
      ∃ whole, oneFinal.ledgers = [whole] ∧ whole.IsUnion final.ledgers := by
  obtain ⟨hagrees, hsizeFinal, whole, hfinal, honeFinal⟩ := agrees_of_serves hfresh.holds hone.holds
    hsize hplain hserves hserved hrequests hanswered
  refine ⟨hagrees, whole, ?_, ?_⟩
  · rw [honeFinal.ledgers, Ledger.split_of_eq_one _ _ hsizeFinal]
  · rw [hfinal.ledgers]
    exact Ledger.isUnion_split _ whole

def oneShard : ShardTable := ⟨[⟨0, "http://a"⟩], by simp⟩

def twoShards : ShardTable := ⟨[⟨0, "http://a"⟩, ⟨1, "http://b"⟩], by simp⟩

-- The roots `a` and `b` belong to different slots of two.
def mixedRequests : List RelayRequest :=
  [.ofHttp ⟨"POST", .parse "/v1/accounts?accountName=a:x&accountType=budget", [], .empty⟩,
    .ofHttp ⟨"POST", .parse "/v1/accounts?accountName=b&accountType=spend", [], .empty⟩,
    .ofHttp ⟨"GET", .parse "/v1/accounts", [], .empty⟩,
    .ofHttp ⟨"GET", .parse "/v1/summary", [], .empty⟩]

theorem agrees_with_one_shard_mixed :
    List.Forall₂ (Exchange.Agrees (.below "/v1"))
        ((new .default twoShards).run mixedRequests).2
        ((new .default oneShard).run mixedRequests).2 ∧
      ∃ whole, ((new .default oneShard).run mixedRequests).1.ledgers = [whole] ∧
        whole.IsUnion ((new .default twoShards).run mixedRequests).1.ledgers := by
  have hplain : ∀ request ∈ mixedRequests, request.IsPlain (.below "/v1") := by decide +kernel
  have hanswered : ∀ exchange ∈ ((new .default oneShard).run mixedRequests).2,
      exchange.isAnswered = true := by decide +kernel
  refine agrees_with_one_shard (isFresh_new .default twoShards) (isFresh_new .default oneShard) rfl
    ?_ (serves_run _ mixedRequests) (serves_run _ mixedRequests)
    (by rw [map_request_run, map_request_run]) hanswered
  intro exchange hexchange
  refine hplain exchange.request ?_
  rw [← map_request_run (new .default twoShards) mixedRequests]
  exact List.mem_map_of_mem hexchange

end Run

end Cluster

end ShardedLedger
