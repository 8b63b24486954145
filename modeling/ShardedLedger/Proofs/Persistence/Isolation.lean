import ShardedLedger.Proofs.Persistence.Tenancy

namespace ShardedLedger

section Prefixes

-- Where two texts meet in another character than the separator, their pieces there are one.
theorem Text.splitOn_append_cons {separator d : Char} (hd : d ≠ separator)
    (before rest : List Char) : ∃ pieces last first more,
      splitOn separator (before ++ [d]) = pieces ++ [last ++ [d]] ∧
      splitOn separator rest = first :: more ∧
      splitOn separator (before ++ d :: rest) = pieces ++ (last ++ d :: first) :: more := by
  induction before with
  | nil =>
      obtain ⟨first, more, hrest⟩ := List.exists_cons_of_ne_nil (splitOn_ne_nil separator rest)
      exact ⟨[], [], first, more, by simp [splitOn, hd], hrest, by simp [splitOn, hd, hrest]⟩
  | cons c before ih =>
      obtain ⟨pieces, last, first, more, hbefore, hrest, hboth⟩ := ih
      by_cases hc : c = separator
      · exact ⟨[] :: pieces, last, first, more, by simp [splitOn, hc, hbefore], hrest,
          by simp [splitOn, hc, hboth]⟩
      · cases pieces with
        | nil =>
            exact ⟨[], c :: last, first, more, by simp [splitOn, hc, hbefore], hrest,
              by simp [splitOn, hc, hboth]⟩
        | cons piece pieces =>
            exact ⟨(c :: piece) :: pieces, last, first, more, by simp [splitOn, hc, hbefore], hrest,
              by simp [splitOn, hc, hboth]⟩

theorem Key.isValid_before_hyphen {before rest : List Char}
    (h : (⟨.ofList (before ++ '-' :: rest)⟩ : Key).IsValid) :
    (⟨.ofList (before ++ ['-'])⟩ : Key).IsValid := by
  obtain ⟨pieces, last, first, more, hbefore, -, hboth⟩ :=
    Text.splitOn_append_cons (show '-' ≠ separator by decide) before rest
  simp only [IsValid, segments, String.toList_ofList, hbefore, hboth] at h ⊢
  obtain ⟨hslash, hpieces⟩ := h
  exact ⟨by simp_all, by simp_all⟩

theorem Key.isValid_behind_hyphen {before : List Char}
    (h : (⟨.ofList (before ++ ['-'])⟩ : Key).IsValid) :
    (⟨.ofList (before ++ ['-', 'x'])⟩ : Key).IsValid := by
  obtain ⟨pieces, last, first, more, hbefore, hrest, hboth⟩ :=
    Text.splitOn_append_cons (show '-' ≠ separator by decide) before ['x']
  obtain ⟨rfl, rfl⟩ : first = ['x'] ∧ more = [] := by
    simpa [Text.splitOn, separator, eq_comm] using hrest
  simp only [IsValid, segments, String.toList_ofList, hbefore, hboth] at h ⊢
  obtain ⟨hslash, hpieces⟩ := h
  exact ⟨by simp_all, by simp_all⟩

namespace Layout

variable {layout other : Layout}

-- The other prefix is this one, a hyphen and the beginning of a valid account name.
def Nests (layout other : Layout) : Prop :=
  ∃ rest : String, (⟨rest ++ "-"⟩ : Key).IsValid ∧
    other.keyPrefix = layout.keyPrefix ++ "-" ++ rest

theorem toList_valueKey (layout : Layout) (account : String) :
    (layout.valueKey account).toList = layout.keyPrefix.toList ++ '-' :: account.toList := by
  rw [valueKey, String.toList_append, String.toList_append, List.append_assoc]
  rfl

theorem Meets.symm (h : layout.Meets other) : other.Meets layout := by
  obtain ⟨key, otherKey, hkey, hother, hvalue⟩ := h
  exact ⟨otherKey, key, hother, hkey, hvalue.symm⟩

theorem eq_or_nests_of_append {key : Key} (hkey : key.IsValid) {middle rest : List Char}
    (hnested : other.keyPrefix.toList = layout.keyPrefix.toList ++ middle)
    (haccount : '-' :: key.text.toList = middle ++ '-' :: rest) :
    layout = other ∨ layout.Nests other := by
  cases middle with
  | nil =>
      rw [List.append_nil] at hnested
      exact .inl (congrArg Layout.mk (String.toList_inj.mp hnested.symm))
  | cons c middle =>
      obtain ⟨rfl, hrest⟩ := List.cons.inj haccount
      have htext : key = ⟨.ofList (middle ++ '-' :: rest)⟩ :=
        Key.ext_toList (hrest.trans String.toList_ofList.symm)
      refine .inr ⟨.ofList middle, ?_, String.toList_inj.mp ?_⟩
      · have hvalid := Key.isValid_before_hyphen (htext ▸ hkey)
        rwa [String.ofList_append] at hvalid
      · simp only [hnested, String.toList_append, String.toList_ofList, List.append_assoc]
        rfl

theorem Nests.meets (h : layout.Nests other) : layout.Meets other := by
  obtain ⟨rest, hrest, hnested⟩ := h
  refine ⟨⟨rest ++ "-x"⟩, ⟨"x"⟩, ?_, by decide, ?_⟩
  · have hvalid : (⟨.ofList (rest.toList ++ ['-'])⟩ : Key).IsValid := by
      rwa [String.ofList_append, String.ofList_toList]
    have hbehind := Key.isValid_behind_hyphen hvalid
    rwa [String.ofList_append, String.ofList_toList] at hbehind
  · rw [valueKey, valueKey, hnested]
    simp only [String.append_assoc]
    rfl

-- Two ledgers get into each other's way if their prefixes are one or if the one prefix reads like
-- the beginning of a value's place under the other.
theorem meets_iff :
    layout.Meets other ↔ layout = other ∨ layout.Nests other ∨ other.Nests layout := by
  constructor
  · rintro ⟨key, otherKey, hkey, hother, hvalue⟩
    have hlist := congrArg String.toList hvalue
    rw [toList_valueKey, toList_valueKey, List.append_eq_append_iff] at hlist
    rcases hlist with ⟨middle, hnested, haccount⟩ | ⟨middle, hnested, haccount⟩
    · exact (eq_or_nests_of_append hkey hnested haccount).imp_right .inl
    · exact (eq_or_nests_of_append hother hnested haccount).imp Eq.symm .inr
  · rintro (rfl | hnests | hnests)
    · exact ⟨⟨"a"⟩, ⟨"a"⟩, by decide, by decide, rfl⟩
    · exact hnests.meets
    · exact hnests.meets.symm

end Layout

end Prefixes

-- Two services on one store, of which the own one is looked at.
structure Pair where
  backend : Backend
  other : Tenant
  own : Tenant

namespace Pair

-- One of the two moves, or the store gets to answer or not and to take its time.
inductive Act where
  | other (move : Tenant.Move)
  | own (move : Tenant.Move)
  | disturb (unavailable : Bool) (latency : Option Nat)

namespace Act

def IsValid : Act → Prop
  | .other move => move.IsValid
  | .own move => move.IsValid
  | .disturb _ _ => True

def isOther : Act → Bool
  | .other _ => true
  | _ => false

end Act

def act (pair : Pair) : Act → Pair × Option Tenant.Report
  | .other move =>
      let outcome := pair.other.act pair.backend move
      ({ pair with backend := outcome.backend, other := outcome.tenant }, none)
  | .own move =>
      let outcome := pair.own.act pair.backend move
      ({ pair with backend := outcome.backend, own := outcome.tenant }, outcome.report)
  | .disturb unavailable latency =>
      ({ pair with backend := { pair.backend with unavailable, latency } }, none)

-- The pair behind some acts, and what the own service has reported.
def run : Pair → List Act → Pair × List Tenant.Report
  | pair, [] => (pair, [])
  | pair, act :: acts =>
      let (next, report) := pair.act act
      let (last, reports) := run next acts
      (last, report.toList ++ reports)

-- The same with the other service at rest.
def runAlone (pair : Pair) (acts : List Act) : Pair × List Tenant.Report :=
  pair.run (acts.filter fun act => !act.isOther)

-- Services with nothing under way, and an index of valid names for the own one.
structure IsFresh (layout other : Layout) (pair : Pair) : Prop where
  own_layout : pair.own.layout = layout
  other_layout : pair.other.layout = other
  own_keys : pair.own.ledger.HasValidKeys
  other_keys : pair.other.ledger.HasValidKeys
  own_calls : pair.own.calls = []
  other_calls : pair.other.calls = []
  lists : pair.backend.store.ListsValid layout

-- What the own service has reported, what it has become and what it has in the store.
structure Alike (layout : Layout) (x y : Pair × List Tenant.Report) : Prop where
  reports : x.2 = y.2
  own : x.1.own = y.1.own
  store : x.1.backend.store.Agrees layout y.1.backend.store

section Isolation

variable {layout other : Layout} {pair alone : Pair}

-- The pair next to the same one in which the other service rests.
structure Mirrors (layout other : Layout) (pair alone : Pair) : Prop where
  own_eq : pair.own = alone.own
  own : pair.own.IsWithin layout
  asks : Tenant.AsksValid pair.own.calls
  other : pair.other.IsWithin other
  backend : pair.backend.Agrees layout alone.backend
  lists : alone.backend.store.ListsValid layout

theorem IsFresh.mirrors (h : pair.IsFresh layout other) : Mirrors layout other pair pair where
  own_eq := rfl
  own := ⟨h.own_layout, h.own_keys, by simp [h.own_calls]⟩
  asks := by simp [Tenant.AsksValid, h.own_calls]
  other := ⟨h.other_layout, h.other_keys, by simp [h.other_calls]⟩
  backend := ⟨.refl layout _, rfl, rfl⟩
  lists := h.lists

theorem Mirrors.other_moved (hmeets : ¬other.Meets layout) (h : Mirrors layout other pair alone)
    {move : Tenant.Move} (hmove : move.IsValid) :
    Mirrors layout other (pair.act (.other move)).1 alone := by
  obtain ⟨hwithin, hwrites⟩ := h.other.act hmove pair.backend
  obtain ⟨commands, hcommands, hstore⟩ := hwrites.store
  have hkept := Store.agrees_applyAll_of_not_meets hmeets hcommands pair.backend.store
  rw [← hstore] at hkept
  exact { h with
    other := hwithin
    backend := ⟨hkept.trans h.backend.store, hwrites.unavailable.trans h.backend.unavailable,
      hwrites.latency.trans h.backend.latency⟩ }

theorem Mirrors.own_moved (h : Mirrors layout other pair alone) {move : Tenant.Move}
    (hmove : move.IsValid) :
    Mirrors layout other (pair.act (.own move)).1 (alone.act (.own move)).1 ∧
      (pair.act (.own move)).2 = (alone.act (.own move)).2 := by
  have hagrees := Tenant.agrees_act h.own h.asks h.backend move
  obtain ⟨hwithin, -⟩ := h.own.act hmove pair.backend
  obtain ⟨-, hwrites⟩ := (h.own_eq ▸ h.own).act hmove alone.backend
  obtain ⟨commands, hcommands, hstore⟩ := hwrites.store
  have hlists : pair.backend.store.ListsValid pair.own.layout :=
    h.own.layout_eq ▸ h.lists.of_agrees h.backend.store
  rw [h.own_eq] at hagrees
  refine ⟨⟨?_, hwithin, Tenant.asksValid_act h.asks hlists move, h.other, ?_, ?_⟩, ?_⟩
  · simpa only [act, h.own_eq] using hagrees.tenant
  · simpa only [act, h.own_eq] using hagrees.backend
  · have hafter := h.lists.applyAll hcommands
    rwa [← hstore] at hafter
  · simpa only [act, h.own_eq] using hagrees.report

theorem Mirrors.run (hmeets : ¬other.Meets layout) (h : Mirrors layout other pair alone)
    {acts : List Act} (hacts : ∀ act ∈ acts, act.IsValid) :
    Alike layout (pair.run acts) (alone.runAlone acts) := by
  induction acts generalizing pair alone with
  | nil => exact ⟨rfl, h.own_eq, h.backend.store⟩
  | cons act acts ih =>
      obtain ⟨hact, hrest⟩ := List.forall_mem_cons.mp hacts
      cases act with
      | other move => exact ih (h.other_moved hmeets hact) hrest
      | own move =>
          obtain ⟨hmoved, hreport⟩ := h.own_moved hact
          obtain ⟨hreports, hown, hstore⟩ := ih hmoved hrest
          exact ⟨congrArg₂ (fun report reports => report.toList ++ reports) hreport hreports, hown,
            hstore⟩
      | disturb unavailable latency =>
          have hdisturbed : Mirrors layout other (pair.act (.disturb unavailable latency)).1
              (alone.act (.disturb unavailable latency)).1 :=
            { h with backend := ⟨h.backend.store, rfl, rfl⟩ }
          exact ih hdisturbed hrest

end Isolation

section Clash

theorem reports_append (pair : Pair) (first second : List Act) :
    (pair.run (first ++ second)).2 = (pair.run first).2 ++ ((pair.run first).1.run second).2 := by
  induction first generalizing pair with
  | nil => rfl
  | cons act first ih =>
      simp only [List.cons_append, run, ih, List.append_assoc]

-- A service whose ledger holds one account and that has nothing under way.
def lone (layout : Layout) (account : Account) : Tenant where
  settings := { ServiceSettings.default with keyPrefix := layout.keyPrefix }
  ledger := Ledger.empty.set account.name account
  turnstile := .free
  calls := []

-- The same service behind its call for the stored values.
def asking (layout : Layout) (account : Account) : Tenant :=
  { lone layout account with
    turnstile := ⟨true, .inPhase1⟩
    calls := [.save (.reading [(account.name, account)])
      ⟨0, ServiceSettings.default.saveTimeout⟩] }

-- A store that answers at once.
def prompt (store : Store) (reads commits : Nat) : Backend := ⟨store, false, none, reads, commits⟩

def newer (key : Key) : Account := { Account.new key .budget with version := 2 }

-- Two services on an empty store, the other one with a later version.
def clash (layout other : Layout) (key otherKey : Key) : Pair where
  backend := prompt .empty 0 0
  other := lone other (newer otherKey)
  own := lone layout (.new key .budget)

def otherSave : List Act := [.other (.beginSave 0), .other (.wake 0), .other (.wake 0)]

def ownSave : List Act := [.own (.beginSave 0), .own (.wake 0), .own (.wake 0)]

def conflict (key : Key) : SaveResult :=
  (Save.compared (.dataInconsistency [key.text])).record Latency.total

variable {layout other : Layout} {key otherKey : Key}

theorem act_beginSave_lone {account : Account} (h : account.outOfSync = false) (store : Store)
    (reads commits : Nat) :
    (lone layout account).act (prompt store reads commits) (.beginSave 0) =
      ⟨asking layout account, prompt store (reads + 1) commits, none⟩ := by
  have hsaved : (lone layout account).ledger.saved = [(account.name, account)] := by
    change [(account.name, account)].filter (fun entry => !entry.2.outOfSync) = _
    simp [h]
  simp only [Tenant.act, Service.beginSave, Tenant.service, Save.start, hsaved, Service.deadline,
    Nat.zero_add]
  rfl

-- A stored account of a later version keeps the own service from saving.
theorem act_wake_asking {account stored : Account} {store : Store} {text : String} {value : Json}
    (htext : store.value? (layout.valueKey account.name.text) = some text)
    (hread : Plan.readStored text = some (value, stored))
    (hversion : account.version < stored.version) (reads commits : Nat) :
    (asking layout account).act (prompt store reads commits) (.wake 0) =
      ⟨lone layout account, prompt store reads commits,
        some (.saved (some (conflict account.name)))⟩ := by
  have hpast : account.isSameOrPast stored = false := by
    simpa [Account.isSameOrPast] using hversion
  have hplan : Plan.forAccounts layout [(account.name, account)] [some text] =
      ⟨[], [], [account.name]⟩ := by
    simp only [Plan.forAccounts, Plan.forAccount, hread, hpast]
    rfl
  have hnext : Save.next layout (prompt store reads commits) (.reading [(account.name, account)]) =
      (prompt store reads commits,
        .done (Save.compared (.dataInconsistency [account.name.text]))) := by
    have hvalues : (prompt store reads commits).values
        (Save.valueKeys layout [(account.name, account)]) = .ok [some text] := by
      rw [← htext]
      rfl
    simp only [Save.next, hvalues, Save.afterRead, hplan]
    rfl
  have hresumed : ((asking layout account).service (prompt store reads commits)).resumeSave
      (.reading [(account.name, account)]) ⟨0, ServiceSettings.default.saveTimeout⟩ =
      ((lone layout account).service (prompt store reads commits),
        .finished (conflict account.name)) := by
    have hlayout : ((asking layout account).service (prompt store reads commits)).layout =
        layout := rfl
    rw [Service.resumeSave, if_neg (by decide), hlayout]
    simp only [Tenant.service, hnext]
    rfl
  have hcalls : (asking layout account).calls[0]? = some (.save (.reading [(account.name, account)])
      ⟨0, ServiceSettings.default.saveTimeout⟩) := rfl
  simp only [Tenant.act, hcalls, hresumed]
  rfl

theorem reports_alone (layout other : Layout) (key otherKey : Key) :
    ((clash layout other key otherKey).runAlone (otherSave ++ ownSave)).2 =
      [.saved (some ((Save.afterWrite (Plan.insertion layout key (.new key .budget)) (.ok ())).record
        Latency.total))] := rfl

theorem reports_both (h : layout.valueKey key.text = other.valueKey otherKey.text) :
    ((clash layout other key otherKey).run (otherSave ++ ownSave)).2 =
      [.saved (some (conflict key))] := by
  have hsaved : (clash layout other key otherKey).run otherSave =
      (⟨prompt (Store.empty.applyAll (Plan.insertion other otherKey (newer otherKey)).commands) 1 1,
        lone other (newer otherKey), lone layout (.new key .budget)⟩, []) := rfl
  have hstored : (Store.empty.applyAll
      (Plan.insertion other otherKey (newer otherKey)).commands).value? (layout.valueKey key.text) =
      some (newer otherKey).storedText := by
    have hset := (Store.empty.addMember other.activeSet otherKey.text).value?_setValue
      (other.valueKey otherKey.text) (newer otherKey).storedText (layout.valueKey key.text)
    rwa [if_pos h] at hset
  have hversion : (Account.new key .budget).version < (newer otherKey).asRecorded.version := by
    change (1 : UInt64) < 2
    decide
  have hinSync : (Account.new key .budget).outOfSync = false := rfl
  rw [reports_append, hsaved]
  generalize Store.empty.applyAll _ = store at hstored ⊢
  simp only [ownSave, run, act, act_beginSave_lone hinSync,
    act_wake_asking hstored (newer otherKey).readStored_storedText hversion]
  rfl

theorem isFresh_clash (hkey : key.IsValid) (hother : otherKey.IsValid) :
    (clash layout other key otherKey).IsFresh layout other := by
  have hkeys {account : Account} (hname : account.name.IsValid) :
      (Ledger.empty.set account.name account).HasValidKeys := by
    intro found foundAccount hfound
    rw [Ledger.get?_set] at hfound
    split at hfound
    next heq => exact heq ▸ hname
    next => simp at hfound
  have hlists : Store.empty.ListsValid layout := by
    rintro member (hmember | hmember) <;> exact absurd hmember List.not_mem_nil
  exact ⟨rfl, rfl, hkeys hkey, hkeys hother, rfl, rfl, hlists⟩

theorem isValid_saves : ∀ act ∈ otherSave ++ ownSave, act.IsValid := by
  simp [otherSave, ownSave, Act.IsValid, Tenant.Move.IsValid]

-- Where two ledgers meet, a save of the other one can be what ends one's own.
theorem not_alike_clash (h : layout.valueKey key.text = other.valueKey otherKey.text) :
    ¬Alike layout ((clash layout other key otherKey).run (otherSave ++ ownSave))
      ((clash layout other key otherKey).runAlone (otherSave ++ ownSave)) := by
  intro halike
  have hreports := halike.reports
  rw [reports_both h, reports_alone] at hreports
  have hstatus := congrArg SaveResult.status
    (Option.some.inj (Tenant.Report.saved.inj (List.cons.inj hreports).1))
  cases hstatus

end Clash

-- Whatever two services do on one store, in any order and with any of their calls under way at a
-- time, none of it makes a difference to the own one, exactly if the prefixes are different ones
-- and neither is the other, a hyphen and the beginning of an account name.
theorem isolated_iff (layout other : Layout) :
    (∀ (pair : Pair) (acts : List Act), pair.IsFresh layout other →
      (∀ act ∈ acts, act.IsValid) → Alike layout (pair.run acts) (pair.runAlone acts)) ↔
      layout ≠ other ∧ ¬layout.Nests other ∧ ¬other.Nests layout := by
  have hmeets : layout ≠ other ∧ ¬layout.Nests other ∧ ¬other.Nests layout ↔
      ¬layout.Meets other := by
    rw [Layout.meets_iff, not_or, not_or]
  rw [hmeets]
  constructor
  · rintro hisolated ⟨key, otherKey, hkey, hother, hvalue⟩
    exact not_alike_clash hvalue
      (hisolated _ (otherSave ++ ownSave) (isFresh_clash hkey hother) isValid_saves)
  · intro hapart pair acts hfresh hacts
    exact hfresh.mirrors.run (fun h => hapart h.symm) hacts

-- The same account in two ledgers, whose prefixes have nothing to do with each other.
theorem isolated_iff_plain :
    Alike ⟨"banker"⟩ ((clash ⟨"banker"⟩ ⟨"ledger"⟩ ⟨"x"⟩ ⟨"x"⟩).run (otherSave ++ ownSave))
      ((clash ⟨"banker"⟩ ⟨"ledger"⟩ ⟨"x"⟩ ⟨"x"⟩).runAlone (otherSave ++ ownSave)) := by
  have hnests (first second : Layout)
      (hhead : first.keyPrefix.toList.head? ≠ second.keyPrefix.toList.head?)
      (hfirst : first.keyPrefix ≠ "") : ¬first.Nests second := by
    rintro ⟨rest, -, hnested⟩
    refine hhead ?_
    rw [hnested, String.toList_append, String.toList_append]
    cases htext : first.keyPrefix.toList with
    | nil => exact absurd (String.toList_inj.mp htext) hfirst
    | cons c text => rfl
  exact (isolated_iff ⟨"banker"⟩ ⟨"ledger"⟩).mpr
    ⟨by decide, hnests _ _ (by decide) (by decide), hnests _ _ (by decide) (by decide)⟩
    _ _ (isFresh_clash (by decide) (by decide)) isValid_saves

-- The account `b-x` under the prefix `a` and the account `x` under the prefix `a-b` have their
-- values in one place.
theorem not_isolated_nested :
    (⟨"a-b"⟩ : Layout) ≠ ⟨"a"⟩ ∧
      (clash ⟨"a-b"⟩ ⟨"a"⟩ ⟨"x"⟩ ⟨"b-x"⟩).IsFresh ⟨"a-b"⟩ ⟨"a"⟩ ∧
      (∀ act ∈ otherSave ++ ownSave, act.IsValid) ∧
      ¬Alike ⟨"a-b"⟩ ((clash ⟨"a-b"⟩ ⟨"a"⟩ ⟨"x"⟩ ⟨"b-x"⟩).run (otherSave ++ ownSave))
        ((clash ⟨"a-b"⟩ ⟨"a"⟩ ⟨"x"⟩ ⟨"b-x"⟩).runAlone (otherSave ++ ownSave)) :=
  ⟨by decide, isFresh_clash (by decide) (by decide), isValid_saves, not_alike_clash (by decide)⟩

end Pair

end ShardedLedger
