import ShardedLedger.Proofs.Settings.Flags
import ShardedLedger.Settings.Relay
import ShardedLedger.Settings.Service

namespace ShardedLedger

-- How a program reads its arguments: the flags it knows, its settings before any of them, and
-- what is made of the settings behind the last one.
structure CommandLine (σ τ : Type) where
  flags : List (Flag σ)
  start : σ
  finish : σ → Except SettingsError τ

namespace CommandLine

variable {σ τ : Type} (line : CommandLine σ τ)

def scan (arguments : List String) : Except SettingsError σ :=
  Flag.scan line.flags arguments line.start

-- The outcome if these settings have been reached and the arguments are still to come.
def resume (settings : σ) (arguments : List String) : Except SettingsError τ := do
  line.finish (← Flag.scan line.flags arguments settings)

-- The laws of reading arguments piece by piece, behind arguments without an error. A known flag
-- takes the next argument, which it accepts or refuses at once. `Shows` says which values of a
-- flag stand for what it has set; a flag that is not given counts as given with its default.
-- Two pairs may change places also if one of them is refused: of two that are refused the first
-- one is reported.
structure Composes (read : List String → Except SettingsError τ) (default : String → String)
    (Shows : τ → String → String → Prop) : Prop where
  append : ∀ xs ys reached, line.scan xs = .ok reached →
    read (xs ++ ys) = line.resume reached ys
  pair : ∀ xs ys reached, line.scan xs = .ok reached → ∀ flag ∈ line.flags, ∀ value,
    read (xs ++ flag.name :: value :: ys) =
      flag.set value reached >>= fun next => line.resume next ys
  missing : ∀ xs reached, line.scan xs = .ok reached → ∀ flag ∈ line.flags,
    read (xs ++ [flag.name]) = .error (.missingValue flag.name)
  skip : ∀ xs ys reached, line.scan xs = .ok reached → ∀ argument,
    argument ∉ line.flags.map (·.name) → read (xs ++ argument :: ys) = read (xs ++ ys)
  last_wins : ∀ arguments settings, read arguments = .ok settings → ∀ flag ∈ line.flags,
    Shows settings flag.name
      ((Flag.lastValue? line.flags flag.name arguments).getD (default flag.name))
  override : ∀ xs ys zs reached next, line.scan xs = .ok reached →
    ∀ flag ∈ line.flags, ∀ value later,
      line.scan (xs ++ flag.name :: value :: ys) = .ok next →
        read (xs ++ flag.name :: value :: (ys ++ flag.name :: later :: zs)) =
          read (xs ++ (ys ++ flag.name :: later :: zs))
  swap : ∀ xs ys reached next, line.scan xs = .ok reached →
    ∀ flag ∈ line.flags, ∀ other ∈ line.flags, flag.name ≠ other.name →
      ∀ value otherValue, line.scan (xs ++ [flag.name, value]) = .ok next →
        read (xs ++ flag.name :: value :: other.name :: otherValue :: ys) =
          read (xs ++ other.name :: otherValue :: flag.name :: value :: ys)

theorem resume_append {xs : List String} {settings : σ} (h : line.scan xs = .ok settings)
    (ys : List String) : line.resume line.start (xs ++ ys) = line.resume settings ys := by
  rw [resume, resume, Flag.scan_append h]

theorem resume_pair (hflags : Flag.Independent line.flags) {flag : Flag σ}
    (hflag : flag ∈ line.flags) (value : String) (ys : List String) (reached : σ) :
    line.resume reached (flag.name :: value :: ys) =
      flag.set value reached >>= fun next => line.resume next ys := by
  rw [resume, Flag.scan_cons_of_known (hflags.find?_name hflag), bind_assoc]
  rfl

-- Behind arguments without an error a flag and its value can only be met where the value is
-- accepted.
theorem exists_set_of_scan (hflags : Flag.Independent line.flags) {flag : Flag σ}
    (hflag : flag ∈ line.flags) {xs ys : List String} {value : String} {reached next : σ}
    (hreached : line.scan xs = .ok reached)
    (hnext : line.scan (xs ++ flag.name :: value :: ys) = .ok next) :
    ∃ between, flag.set value reached = .ok between ∧
      Flag.scan line.flags ys between = .ok next := by
  have hrest : Flag.scan line.flags (flag.name :: value :: ys) reached = .ok next :=
    (Flag.scan_append hreached _).symm.trans hnext
  rw [Flag.scan_cons_of_known (hflags.find?_name hflag)] at hrest
  exact bind_eq_ok_iff.mp hrest

theorem composes {default : String → String} {Shows : τ → String → String → Prop}
    (hflags : Flag.Independent line.flags)
    (hdefault : ∀ flag ∈ line.flags,
      flag.set (default flag.name) line.start = .ok line.start)
    (hshows : ∀ flag ∈ line.flags, ∀ draft settings value,
      flag.set value draft = .ok draft → line.finish draft = .ok settings →
        Shows settings flag.name value) :
    line.Composes (line.resume line.start) default Shows where
  append xs ys reached hreached := line.resume_append hreached ys
  pair xs ys reached hreached flag hflag value := by
    rw [line.resume_append hreached, line.resume_pair hflags hflag]
  missing xs reached hreached flag hflag := by
    rw [line.resume_append hreached, resume, Flag.scan_singleton (hflags.find?_name hflag)]
    rfl
  skip xs ys reached hreached argument hunknown := by
    have hfind : line.flags.find? (·.name = argument) = none := by
      refine List.find?_eq_none.mpr fun flag hflag hname => hunknown ?_
      exact List.mem_map.mpr ⟨flag, hflag, of_decide_eq_true hname⟩
    rw [line.resume_append hreached, line.resume_append hreached, resume, resume,
      Flag.scan_cons_of_unknown hfind]
  last_wins arguments settings h flag hflag := by
    obtain ⟨draft, hscan, hfinish⟩ := bind_eq_ok_iff.mp h
    have hlast := hflags.set_lastValue hflag hscan (hdefault flag hflag)
    exact hshows flag hflag draft settings _ hlast hfinish
  override xs ys zs reached next hreached flag hflag value later hnext := by
    obtain ⟨between, hset, hscan⟩ := line.exists_set_of_scan hflags hflag hreached hnext
    rw [line.resume_append hreached, line.resume_append hreached, resume, resume,
      hflags.scan_override hflag hset hscan]
  swap xs ys reached next hreached flag hflag other hother hne value otherValue hnext := by
    obtain ⟨between, hset, -⟩ := line.exists_set_of_scan hflags hflag hreached hnext
    rw [line.resume_append hreached, line.resume_append hreached, resume, resume,
      hflags.scan_swap hflag hother hne hset]

end CommandLine

namespace ServiceSettings

def line : CommandLine Draft ServiceSettings := ⟨flags, .start, Draft.finish⟩

def defaultText : String → String
  | "--bind" => "0.0.0.0:7001"
  | "--api-prefix" => defaultApiPrefix
  | "--store" => "redis"
  | "--redis-url" => defaultStoreUrl
  | "--key-prefix" => defaultKeyPrefix
  | "--save-interval-ms" => "1000"
  | "--save-timeout-ms" => "10000"
  | _ => ""

-- The settings are what the flag of this name sets with the value. The address of the store
-- shows only with a store that has one.
def Shows (settings : ServiceSettings) (name value : String) : Prop :=
  match name with
  | "--bind" => SocketAddress.parse? value = some settings.bind
  | "--api-prefix" => settings.apiPrefix = value
  | "--store" =>
      value = "memory" ∧ settings.store = .memory ∨
        value = "redis" ∧ ∃ url, settings.store = .redis url
  | "--redis-url" => settings.store = .memory ∨ settings.store = .redis value
  | "--key-prefix" => settings.keyPrefix = value
  | "--save-interval-ms" =>
      0 < settings.saveInterval ∧ Numeral.parse greatestWord value = .ok settings.saveInterval
  | "--save-timeout-ms" =>
      0 < settings.saveTimeout ∧ Numeral.parse greatestWord value = .ok settings.saveTimeout
  | _ => False

theorem independent_flags : Flag.Independent flags where
  isSetting := by
    simp only [flags, List.forall_mem_cons, List.not_mem_nil, false_implies, implies_true, and_true]
    and_intros <;> exact .of_writes (by intros; rfl)
  separate := by
    simp only [flags, List.pairwise_cons, List.forall_mem_cons, List.not_mem_nil, false_implies,
      implies_true, and_true, List.Pairwise.nil]
    and_intros <;> exact .of_writes (by decide) (by intros; rfl)

theorem set_default : ∀ flag ∈ flags, flag.set (defaultText flag.name) .start = .ok .start := by
  simp only [flags, List.forall_mem_cons, List.not_mem_nil, false_implies, implies_true, and_true]
  and_intros <;> rfl

theorem Draft.finish_cases {draft : Draft} {settings : ServiceSettings}
    (h : draft.finish = .ok settings) :
    draft.storeName = "memory" ∧ settings = { draft.settings with store := .memory } ∨
      draft.storeName = "redis" ∧
        settings = { draft.settings with store := .redis draft.storeUrl } := by
  unfold finish at h
  split at h
  next hname =>
    cases h
    exact .inl ⟨hname, rfl⟩
  next =>
    split at h
    next hname =>
      cases h
      exact .inr ⟨hname, rfl⟩
    next => cases h

-- The end of the command line only decides on the store.
theorem Draft.finish_keeps {draft : Draft} {settings : ServiceSettings}
    (h : draft.finish = .ok settings) :
    settings.bind = draft.settings.bind ∧ settings.apiPrefix = draft.settings.apiPrefix ∧
      settings.keyPrefix = draft.settings.keyPrefix ∧
      settings.saveInterval = draft.settings.saveInterval ∧
      settings.saveTimeout = draft.settings.saveTimeout := by
  rcases finish_cases h with ⟨-, rfl⟩ | ⟨-, rfl⟩ <;> exact ⟨rfl, rfl, rfl, rfl, rfl⟩

theorem shows_of_set : ∀ flag ∈ flags, ∀ draft settings value,
    flag.set value draft = .ok draft → Draft.finish draft = .ok settings →
      settings.Shows flag.name value := by
  simp only [flags, List.forall_mem_cons, List.not_mem_nil, false_implies, implies_true, and_true]
  and_intros
  all_goals
    intro draft settings value hset hfinish
    obtain ⟨x, hread, hwrite⟩ := Flag.set_eq_ok_iff.mp hset
    obtain ⟨hbind, hapiPrefix, hkeyPrefix, hinterval, htimeout⟩ := Draft.finish_keeps hfinish
  · obtain rfl : x = settings.bind := (congrArg (·.settings.bind) hwrite).trans hbind.symm
    exact Flag.readAddress_eq_ok_iff.mp hread
  · obtain rfl : value = x := Except.ok.inj hread
    exact hapiPrefix.trans (congrArg (·.settings.apiPrefix) hwrite).symm
  · obtain rfl : value = x := Except.ok.inj hread
    obtain rfl : value = draft.storeName := congrArg (·.storeName) hwrite
    rcases Draft.finish_cases hfinish with ⟨hname, rfl⟩ | ⟨hname, rfl⟩
    · exact .inl ⟨hname, rfl⟩
    · exact .inr ⟨hname, draft.storeUrl, rfl⟩
  · obtain rfl : value = x := Except.ok.inj hread
    obtain rfl : value = draft.storeUrl := congrArg (·.storeUrl) hwrite
    rcases Draft.finish_cases hfinish with ⟨-, rfl⟩ | ⟨-, rfl⟩
    · exact .inl rfl
    · exact .inr rfl
  · obtain rfl : value = x := Except.ok.inj hread
    exact hkeyPrefix.trans (congrArg (·.settings.keyPrefix) hwrite).symm
  · obtain rfl : x = settings.saveInterval :=
      (congrArg (·.settings.saveInterval) hwrite).trans hinterval.symm
    exact Flag.readPositive_eq_ok_iff.mp hread
  · obtain rfl : x = settings.saveTimeout :=
      (congrArg (·.settings.saveTimeout) hwrite).trans htimeout.symm
    exact Flag.readPositive_eq_ok_iff.mp hread

end ServiceSettings

namespace RelaySettings

def Draft.finish (files : Files) (draft : Draft) : Except SettingsError RelaySettings := do
  return { draft.settings with shards := ← readShards files draft.shardFile }

def line (files : Files) : CommandLine Draft RelaySettings := ⟨flags, .start, Draft.finish files⟩

def defaultText : String → String
  | "--bind" => "0.0.0.0:8989"
  | "--relay-config" => defaultShardFile
  | "--api-prefix" => defaultApiPrefix
  | "--min-connections" => "2"
  | "--max-uses" => "1000"
  | "--upstream-timeout-ms" => "30000"
  | _ => ""

-- The settings are what the flag of this name sets with the value. A time of zero means none.
def Shows (files : Files) (settings : RelaySettings) (name value : String) : Prop :=
  match name with
  | "--bind" => SocketAddress.parse? value = some settings.bind
  | "--relay-config" => readShards files value = .ok settings.shards
  | "--api-prefix" => settings.apiPrefix = value
  | "--min-connections" =>
      Numeral.parse greatestWord value = .ok settings.pool.minConnections
  | "--max-uses" => Numeral.parse 0xFFFFFFFF value = .ok settings.pool.maxUses.toNat
  | "--upstream-timeout-ms" =>
      Numeral.parse greatestWord value = .ok (settings.answerTimeout.getD 0) ∧
        settings.answerTimeout ≠ some 0
  | _ => False

theorem independent_flags : Flag.Independent flags where
  isSetting := by
    simp only [flags, List.forall_mem_cons, List.not_mem_nil, false_implies, implies_true, and_true]
    and_intros <;> exact .of_writes (by intros; rfl)
  separate := by
    simp only [flags, List.pairwise_cons, List.forall_mem_cons, List.not_mem_nil, false_implies,
      implies_true, and_true, List.Pairwise.nil]
    and_intros <;> exact .of_writes (by decide) (by intros; rfl)

theorem set_default : ∀ flag ∈ flags, flag.set (defaultText flag.name) .start = .ok .start := by
  simp only [flags, List.forall_mem_cons, List.not_mem_nil, false_implies, implies_true, and_true]
  and_intros <;> rfl

theorem shows_of_set (files : Files) : ∀ flag ∈ flags, ∀ draft settings value,
    flag.set value draft = .ok draft → Draft.finish files draft = .ok settings →
      settings.Shows files flag.name value := by
  simp only [flags, List.forall_mem_cons, List.not_mem_nil, false_implies, implies_true, and_true]
  and_intros
  all_goals
    intro draft settings value hset hfinish
    obtain ⟨x, hread, hwrite⟩ := Flag.set_eq_ok_iff.mp hset
    obtain ⟨shards, hshards, hsettings⟩ := bind_eq_ok_iff.mp hfinish
    obtain rfl := pure_eq_ok_iff.mp hsettings
  · obtain rfl : x = draft.settings.bind := congrArg (·.settings.bind) hwrite
    exact Flag.readAddress_eq_ok_iff.mp hread
  · obtain rfl : value = x := Except.ok.inj hread
    obtain rfl : value = draft.shardFile := congrArg (·.shardFile) hwrite
    exact hshards
  · obtain rfl : value = x := Except.ok.inj hread
    exact (congrArg (·.settings.apiPrefix) hwrite).symm
  · obtain rfl : x = draft.settings.pool.minConnections :=
      congrArg (·.settings.pool.minConnections) hwrite
    exact Flag.readNumber_eq_ok_iff.mp hread
  · have hparse := Flag.readNumber_eq_ok_iff.mp hread
    have huses : UInt32.ofNat x = draft.settings.pool.maxUses :=
      congrArg (·.settings.pool.maxUses) hwrite
    have hfits : x < 2 ^ 32 := Nat.lt_succ_of_le (Numeral.le_of_parse hparse)
    have hx : x = draft.settings.pool.maxUses.toNat := by
      rw [← huses, UInt32.toNat_ofNat_of_lt' hfits]
    rw [hx] at hparse
    exact hparse
  · have hparse := Flag.readNumber_eq_ok_iff.mp hread
    have htimeout : (if x = 0 then none else some x) = draft.settings.answerTimeout :=
      congrArg (·.settings.answerTimeout) hwrite
    change Numeral.parse greatestWord value = .ok (draft.settings.answerTimeout.getD 0) ∧
      draft.settings.answerTimeout ≠ some 0
    rw [← htimeout]
    split
    next hzero => exact ⟨hzero ▸ hparse, nofun⟩
    next hpos => exact ⟨hparse, fun h => hpos (Option.some.inj h)⟩

end RelaySettings

namespace CommandLine

-- Each program knows these flags and no others. Both read their arguments piece by piece, and a
-- ledger shard that starts waits for some time before it saves and before it gives a save up.
theorem arguments_compose :
    ServiceSettings.line.flags.map (·.name) =
        ["--bind", "--api-prefix", "--store", "--redis-url", "--key-prefix",
          "--save-interval-ms", "--save-timeout-ms"] ∧
      (∀ files, (RelaySettings.line files).flags.map (·.name) =
        ["--bind", "--relay-config", "--api-prefix", "--min-connections", "--max-uses",
          "--upstream-timeout-ms"]) ∧
      ServiceSettings.line.Composes ServiceSettings.ofArguments ServiceSettings.defaultText
        ServiceSettings.Shows ∧
      (∀ files, (RelaySettings.line files).Composes (RelaySettings.ofArguments files)
        RelaySettings.defaultText (RelaySettings.Shows files)) ∧
      ∀ arguments settings, ServiceSettings.ofArguments arguments = .ok settings →
        0 < settings.saveInterval ∧ 0 < settings.saveTimeout := by
  have hservice : ServiceSettings.line.Composes ServiceSettings.ofArguments
      ServiceSettings.defaultText ServiceSettings.Shows :=
    composes _ ServiceSettings.independent_flags ServiceSettings.set_default
      ServiceSettings.shows_of_set
  refine ⟨rfl, fun _ => rfl, hservice, fun files => ?_, fun arguments settings hread => ?_⟩
  · exact composes _ RelaySettings.independent_flags RelaySettings.set_default
      (RelaySettings.shows_of_set files)
  · have hshows := hservice.last_wins arguments settings hread
    simp only [ServiceSettings.line, ServiceSettings.flags, List.forall_mem_cons] at hshows
    obtain ⟨-, -, -, -, -, ⟨hinterval, -⟩, ⟨htimeout, -⟩, -⟩ := hshows
    exact ⟨hinterval, htimeout⟩

-- A value that looks like a flag, an argument that no flag takes, a time that is given twice and
-- one that is refused in either order.
theorem arguments_compose_lookalike :
    ServiceSettings.ofArguments (["--api-prefix", "--store"] ++ ["--store", "memory"]) =
        .ok { ServiceSettings.default with apiPrefix := "--store", store := .memory } ∧
      ServiceSettings.ofArguments
          ["--api-prefix", "--store", "extra", "--save-interval-ms", "5", "--save-timeout-ms", "0"] =
        ServiceSettings.ofArguments
          ["--api-prefix", "--store", "--save-timeout-ms", "0", "--save-interval-ms", "5"] ∧
      { ServiceSettings.default with saveInterval := 7 }.Shows "--save-interval-ms" "+07" := by
  obtain ⟨-, -, hservice, -, -⟩ := arguments_compose
  have hreached : ServiceSettings.line.scan ["--api-prefix", "--store"] =
      .ok ⟨{ ServiceSettings.default with apiPrefix := "--store" }, "redis",
        ServiceSettings.defaultStoreUrl⟩ := rfl
  refine ⟨hservice.append _ _ _ hreached, ?_, ?_⟩
  · have hskip := hservice.skip _ ["--save-interval-ms", "5", "--save-timeout-ms", "0"] _ hreached
      "extra" (by decide)
    refine hskip.trans ?_
    have hinterval := List.getElem_mem (l := ServiceSettings.line.flags) (n := 5) (by decide)
    have htimeout := List.getElem_mem (l := ServiceSettings.line.flags) (n := 6) (by decide)
    exact hservice.swap _ [] _ _ hreached _ hinterval _ htimeout (by decide) "5" "0" rfl
  · have hshows := hservice.last_wins
      ["--save-interval-ms", "5", "--save-interval-ms", "+07"] _ rfl
    simp only [ServiceSettings.line, ServiceSettings.flags, List.forall_mem_cons] at hshows
    exact hshows.2.2.2.2.2.1

end CommandLine

end ShardedLedger
