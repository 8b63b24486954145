import ShardedLedger.Proofs.Persistence.Territory

namespace ShardedLedger

namespace Service

variable {layout : Layout} {service : Service}

section Writes

def SaveProgress.IsWithin (layout : Layout) : SaveProgress → Prop
  | .waiting save _ => save.IsWithin layout
  | _ => True

-- What a save may do to its service, whatever it comes to.
structure SavesWithin (layout : Layout) (service : Service) (after : Service × SaveProgress) :
    Prop where
  settings : after.1.settings = service.settings
  ledger : after.1.ledger = service.ledger
  writes : service.backend.Writes layout after.1.backend
  progress : after.2.IsWithin layout

theorem savesWithin_continueSave {next : Save.Next} (h : next.IsWithin layout) (service : Service)
    (now deadline : Nat) : service.SavesWithin layout (service.continueSave now deadline next) := by
  cases next with
  | done result => exact ⟨rfl, rfl, .of_store_eq rfl rfl rfl, trivial⟩
  | waiting save =>
      refine ⟨rfl, rfl, ?_, h⟩
      cases save <;> exact .of_store_eq rfl rfl rfl

theorem savesWithin_beginSave (h : service.ledger.HasValidKeys) (layout : Layout) (now : Nat) :
    service.SavesWithin layout (service.beginSave now) := by
  unfold beginSave
  split
  next => exact ⟨rfl, rfl, .of_store_eq rfl rfl rfl, trivial⟩
  next turnstile _ =>
    obtain ⟨hsettings, hledger, hwrites, hprogress⟩ := savesWithin_continueSave
      (Save.isWithin_start h layout) { service with turnstile := turnstile.move .inPhase1 } now
      (service.deadline now)
    exact ⟨hsettings, hledger, hwrites, hprogress⟩

theorem savesWithin_resumeSave (service : Service) {save : Save}
    (h : save.IsWithin service.layout) (wait : Wait) :
    service.SavesWithin service.layout (service.resumeSave save wait) := by
  unfold resumeSave
  split
  next => exact ⟨rfl, rfl, .of_store_eq rfl rfl rfl, trivial⟩
  next =>
    obtain ⟨hwritten, hnext⟩ := Save.isWithin_next h service.backend
    obtain ⟨hsettings, hledger, hwrites, hprogress⟩ := savesWithin_continueSave hnext
      { service with backend := (save.next service.layout service.backend).1 } wait.answerAt
      wait.deadline
    exact ⟨hsettings, hledger, hwritten.trans hwrites, hprogress⟩

def LoadProgress.IsValid : LoadProgress → Prop
  | .waiting load _ => load.IsValid
  | .finished _ => True

-- What a load may do to its service. It writes nothing, and what it brings has valid keys even if
-- the index lists other names.
structure LoadsWithin (layout : Layout) (service : Service) (after : Service × LoadProgress) :
    Prop where
  settings : after.1.settings = service.settings
  keys : after.1.ledger.HasValidKeys
  writes : service.backend.Writes layout after.1.backend

theorem loadsWithin_continueLoad {next : Load.Next}
    (h : ∀ ledger, next = .done (.ok ledger) → ledger.HasValidKeys)
    (hkeys : service.ledger.HasValidKeys) (layout : Layout) (now deadline : Nat) :
    service.LoadsWithin layout (service.continueLoad now deadline next) := by
  cases next with
  | done outcome =>
      cases outcome with
      | ok ledger => exact ⟨rfl, h ledger rfl, .of_store_eq rfl rfl rfl⟩
      | error result => exact ⟨rfl, hkeys, .of_store_eq rfl rfl rfl⟩
  | waiting load =>
      refine ⟨rfl, hkeys, ?_⟩
      cases load <;> exact .of_store_eq rfl rfl rfl

theorem loadsWithin_resumeLoad (hkeys : service.ledger.HasValidKeys) (layout : Layout)
    (load : Load) (wait : Wait) : service.LoadsWithin layout (service.resumeLoad load wait) := by
  unfold resumeLoad
  split
  next => exact ⟨rfl, hkeys, .of_store_eq rfl rfl rfl⟩
  next =>
    exact loadsWithin_continueLoad
      (fun ledger hnext => (Load.wellNamed_of_next hnext).hasValidKeys) hkeys layout _ _

theorem isValid_continueLoad {next : Load.Next}
    (h : ∀ following, next = .waiting following → following.IsValid) (service : Service)
    (now deadline : Nat) : (service.continueLoad now deadline next).2.IsValid := by
  cases next with
  | done outcome => cases outcome <;> trivial
  | waiting load => exact h load rfl

theorem isValid_resumeLoad (service : Service) {load : Load} (h : load.IsValid)
    (hlists : service.backend.store.ListsValid service.layout) (wait : Wait) :
    (service.resumeLoad load wait).2.IsValid := by
  unfold resumeLoad
  split
  next => trivial
  next =>
    exact isValid_continueLoad (fun following hnext => Load.isValid_of_next h hlists hnext) _ _ _

end Writes

section Agreement

variable {a b : Backend}

-- Two services that differ in their stores alone, and there only in what is not theirs.
structure Agrees {α : Type} (layout : Layout) (x y : Service × α) : Prop where
  service : x.1 = { y.1 with backend := x.1.backend }
  progress : x.2 = y.2
  backend : x.1.backend.Agrees layout y.1.backend

theorem agrees_continueSave (h : a.Agrees layout b) {next other : Save.Next} (hnext : next = other)
    (service : Service) (now deadline : Nat) :
    Agrees layout (continueSave { service with backend := a } now deadline next)
      (continueSave { service with backend := b } now deadline other) := by
  subst hnext
  have hdelay : a.delay = b.delay := congrArg (Option.getD · 0) h.latency
  cases next with
  | done result => exact ⟨rfl, rfl, h⟩
  | waiting save =>
      refine ⟨rfl, ?_, ?_⟩
      · simp only [continueSave, wait, hdelay]
      · cases save <;> exact ⟨h.store, h.unavailable, h.latency⟩

theorem agrees_beginSave (h : a.Agrees layout b) (service : Service) (now : Nat) :
    Agrees layout (beginSave { service with backend := a } now)
      (beginSave { service with backend := b } now) := by
  unfold beginSave
  dsimp only
  split
  next => exact ⟨rfl, rfl, h⟩
  next turnstile _ =>
    exact agrees_continueSave h rfl { service with turnstile := turnstile.move .inPhase1 } now _

theorem agrees_resumeSave (service : Service) {save : Save}
    (hsave : save.IsWithin service.layout) (h : a.Agrees service.layout b) (wait : Wait) :
    Agrees service.layout (resumeSave { service with backend := a } save wait)
      (resumeSave { service with backend := b } save wait) := by
  obtain ⟨hnext, hbackend⟩ := Save.next_agrees hsave h
  unfold resumeSave
  split
  next => exact ⟨rfl, rfl, h⟩
  next => exact agrees_continueSave hbackend hnext service wait.answerAt wait.deadline

theorem agrees_continueLoad (h : a.Agrees layout b) {next other : Load.Next} (hnext : next = other)
    (service : Service) (now deadline : Nat) :
    Agrees layout (continueLoad { service with backend := a } now deadline next)
      (continueLoad { service with backend := b } now deadline other) := by
  subst hnext
  have hdelay : a.delay = b.delay := congrArg (Option.getD · 0) h.latency
  cases next with
  | done outcome => cases outcome <;> exact ⟨rfl, rfl, h⟩
  | waiting load =>
      refine ⟨rfl, ?_, ?_⟩
      · simp only [continueLoad, wait, hdelay]
      · cases load <;> exact ⟨h.store, h.unavailable, h.latency⟩

theorem agrees_resumeLoad (service : Service) {load : Load} (hload : load.IsValid)
    (h : a.Agrees service.layout b) (wait : Wait) :
    Agrees service.layout (resumeLoad { service with backend := a } load wait)
      (resumeLoad { service with backend := b } load wait) := by
  have hnext := Load.next_agrees hload h
  unfold resumeLoad
  split
  next => exact ⟨rfl, rfl, h⟩
  next => exact agrees_continueLoad h hnext service wait.answerAt wait.deadline

end Agreement

end Service

namespace Tenant

-- A save or a load under way.
inductive Call where
  | save (save : Save) (wait : Wait)
  | load (load : Load) (wait : Wait)

-- What comes of a save, which may find another one under way, or of a load.
inductive Report where
  | saved (result : Option SaveResult)
  | loaded (result : SaveResult)
  deriving DecidableEq

-- What a service does next. Of the calls under way it names one by its place.
inductive Move where
  | edit (change : Ledger → Ledger)
  | beginSave (now : Nat)
  | beginLoad (now : Nat)
  | wake (index : Nat)
  | drop (index : Nat)

def Move.IsValid : Move → Prop
  | .edit change => ∀ ledger : Ledger, ledger.HasValidKeys → (change ledger).HasValidKeys
  | _ => True

end Tenant

-- A service on a store that it shares, without the store itself.
structure Tenant where
  settings : ServiceSettings
  ledger : Ledger
  turnstile : Turnstile
  calls : List Tenant.Call

namespace Tenant

def layout (tenant : Tenant) : Layout := ⟨tenant.settings.keyPrefix⟩

def service (tenant : Tenant) (backend : Backend) : Service :=
  ⟨tenant.settings, tenant.ledger, backend, tenant.turnstile⟩

def ofService (service : Service) (calls : List Call) : Tenant :=
  ⟨service.settings, service.ledger, service.turnstile, calls⟩

-- The service and the store behind a move, and what is reported then, if anything.
structure Outcome where
  tenant : Tenant
  backend : Backend
  report : Option Report

def afterSave (calls : List Call) : Service × Service.SaveProgress → Outcome
  | (service, .skipped) => ⟨ofService service calls, service.backend, some (.saved none)⟩
  | (service, .finished result) =>
      ⟨ofService service calls, service.backend, some (.saved (some result))⟩
  | (service, .waiting save wait) =>
      ⟨ofService service (calls ++ [.save save wait]), service.backend, none⟩

def afterLoad (calls : List Call) : Service × Service.LoadProgress → Outcome
  | (service, .finished result) =>
      ⟨ofService service calls, service.backend, some (.loaded result)⟩
  | (service, .waiting load wait) =>
      ⟨ofService service (calls ++ [.load load wait]), service.backend, none⟩

def act (tenant : Tenant) (backend : Backend) : Move → Outcome
  | .edit change => ⟨{ tenant with ledger := change tenant.ledger }, backend, none⟩
  | .beginSave now => afterSave tenant.calls ((tenant.service backend).beginSave now)
  | .beginLoad now => afterLoad tenant.calls ((tenant.service backend).beginLoad now)
  | .wake index =>
      match tenant.calls[index]? with
      | some (.save save wait) =>
          afterSave (tenant.calls.eraseIdx index) ((tenant.service backend).resumeSave save wait)
      | some (.load load wait) =>
          afterLoad (tenant.calls.eraseIdx index) ((tenant.service backend).resumeLoad load wait)
      | none => ⟨tenant, backend, none⟩
  | .drop index =>
      match tenant.calls[index]? with
      | some (.save _ _) =>
          ⟨ofService (tenant.service backend).dropSave (tenant.calls.eraseIdx index), backend, none⟩
      | some (.load _ _) => ⟨{ tenant with calls := tenant.calls.eraseIdx index }, backend, none⟩
      | none => ⟨tenant, backend, none⟩

section Steps

variable {layout : Layout} {tenant : Tenant} {move : Move}

-- A service that keeps to its own place in the store.
structure IsWithin (layout : Layout) (tenant : Tenant) : Prop where
  layout_eq : tenant.layout = layout
  keys : tenant.ledger.HasValidKeys
  saves : ∀ save wait, .save save wait ∈ tenant.calls → save.IsWithin layout

def AsksValid (calls : List Call) : Prop :=
  ∀ load wait, .load load wait ∈ calls → load.IsValid

theorem isWithin_afterSave {service : Service} {calls : List Call}
    {after : Service × Service.SaveProgress} (h : service.SavesWithin layout after)
    (hlayout : service.layout = layout) (hkeys : service.ledger.HasValidKeys)
    (hcalls : ∀ save wait, .save save wait ∈ calls → save.IsWithin layout) :
    (afterSave calls after).tenant.IsWithin layout ∧
      service.backend.Writes layout (afterSave calls after).backend := by
  obtain ⟨next, progress⟩ := after
  obtain ⟨hsettings, hledger, hwrites, hprogress⟩ := h
  have hnext : (⟨next.settings.keyPrefix⟩ : Layout) = layout := hsettings ▸ hlayout
  have hnextKeys : next.ledger.HasValidKeys := hledger ▸ hkeys
  cases progress with
  | skipped => exact ⟨⟨hnext, hnextKeys, hcalls⟩, hwrites⟩
  | finished result => exact ⟨⟨hnext, hnextKeys, hcalls⟩, hwrites⟩
  | waiting save wait =>
      refine ⟨⟨hnext, hnextKeys, fun other otherWait hmem => ?_⟩, hwrites⟩
      rcases List.mem_append.mp hmem with hmem | hmem
      · exact hcalls other otherWait hmem
      · cases List.mem_singleton.mp hmem
        exact hprogress

theorem isWithin_afterLoad {service : Service} {calls : List Call}
    {after : Service × Service.LoadProgress} (h : service.LoadsWithin layout after)
    (hlayout : service.layout = layout)
    (hcalls : ∀ save wait, .save save wait ∈ calls → save.IsWithin layout) :
    (afterLoad calls after).tenant.IsWithin layout ∧
      service.backend.Writes layout (afterLoad calls after).backend := by
  obtain ⟨next, progress⟩ := after
  obtain ⟨hsettings, hkeys, hwrites⟩ := h
  have hnext : (⟨next.settings.keyPrefix⟩ : Layout) = layout := hsettings ▸ hlayout
  cases progress with
  | finished result => exact ⟨⟨hnext, hkeys, hcalls⟩, hwrites⟩
  | waiting load wait =>
      refine ⟨⟨hnext, hkeys, fun save otherWait hmem => ?_⟩, hwrites⟩
      rcases List.mem_append.mp hmem with hmem | hmem
      · exact hcalls save otherWait hmem
      · cases List.mem_singleton.mp hmem

-- Whatever a service does, it writes to its own place alone.
theorem IsWithin.act (h : tenant.IsWithin layout) (hmove : move.IsValid) (backend : Backend) :
    (tenant.act backend move).tenant.IsWithin layout ∧
      backend.Writes layout (tenant.act backend move).backend := by
  obtain ⟨rfl, hkeys, hsaves⟩ := h
  have hkept : backend.Writes tenant.layout backend := .of_store_eq rfl rfl rfl
  have hservice : (tenant.service backend).ledger.HasValidKeys := hkeys
  have herased (index : Nat) (save : Save) (wait : Wait)
      (hmem : .save save wait ∈ tenant.calls.eraseIdx index) : save.IsWithin tenant.layout :=
    hsaves save wait (List.mem_of_mem_eraseIdx hmem)
  cases move with
  | edit change => exact ⟨⟨rfl, hmove tenant.ledger hkeys, hsaves⟩, hkept⟩
  | beginSave now =>
      exact isWithin_afterSave (Service.savesWithin_beginSave hservice _ now) rfl hkeys hsaves
  | beginLoad now =>
      have hnone : ∀ ledger, Load.Next.waiting .readingActive = .done (.ok ledger) →
          ledger.HasValidKeys := by
        rintro ledger ⟨⟩
      have hbegun : (tenant.service backend).LoadsWithin tenant.layout
          ((tenant.service backend).beginLoad now) :=
        Service.loadsWithin_continueLoad hnone hservice _ _ _
      exact isWithin_afterLoad hbegun rfl hsaves
  | wake index =>
      simp only [Tenant.act]
      split
      next save wait hcall =>
        have hsave := hsaves save wait (List.mem_of_getElem? hcall)
        exact isWithin_afterSave ((tenant.service backend).savesWithin_resumeSave hsave wait) rfl
          hkeys (herased index)
      next load wait _ =>
        exact isWithin_afterLoad (Service.loadsWithin_resumeLoad hservice _ load wait) rfl
          (herased index)
      next => exact ⟨⟨rfl, hkeys, hsaves⟩, hkept⟩
  | drop index =>
      simp only [Tenant.act]
      split
      next => exact ⟨⟨rfl, hkeys, herased index⟩, hkept⟩
      next => exact ⟨⟨rfl, hkeys, herased index⟩, hkept⟩
      next => exact ⟨⟨rfl, hkeys, hsaves⟩, hkept⟩

theorem asksValid_afterSave {calls : List Call} (h : AsksValid calls)
    (after : Service × Service.SaveProgress) : AsksValid (afterSave calls after).tenant.calls := by
  obtain ⟨next, progress⟩ := after
  cases progress with
  | skipped => exact h
  | finished result => exact h
  | waiting save wait =>
      intro load otherWait hmem
      rcases List.mem_append.mp hmem with hmem | hmem
      · exact h load otherWait hmem
      · cases List.mem_singleton.mp hmem

theorem asksValid_afterLoad {calls : List Call} (h : AsksValid calls)
    {after : Service × Service.LoadProgress} (hprogress : after.2.IsValid) :
    AsksValid (afterLoad calls after).tenant.calls := by
  obtain ⟨next, progress⟩ := after
  cases progress with
  | finished result => exact h
  | waiting load wait =>
      intro other otherWait hmem
      rcases List.mem_append.mp hmem with hmem | hmem
      · exact h other otherWait hmem
      · cases List.mem_singleton.mp hmem
        exact hprogress

theorem asksValid_act (h : AsksValid tenant.calls) {backend : Backend}
    (hlists : backend.store.ListsValid tenant.layout) (move : Move) :
    AsksValid (tenant.act backend move).tenant.calls := by
  have herased (index : Nat) : AsksValid (tenant.calls.eraseIdx index) :=
    fun load wait hmem => h load wait (List.mem_of_mem_eraseIdx hmem)
  cases move with
  | edit change => exact h
  | beginSave now => exact asksValid_afterSave h _
  | beginLoad now =>
      have hactive : ∀ following, Load.Next.waiting .readingActive = .waiting following →
          following.IsValid := by
        rintro _ ⟨⟩
        trivial
      exact asksValid_afterLoad h (Service.isValid_continueLoad hactive _ _ _)
  | wake index =>
      simp only [act]
      split
      next => exact asksValid_afterSave (herased index) _
      next load wait hcall =>
        have hload := h load wait (List.mem_of_getElem? hcall)
        exact asksValid_afterLoad (herased index)
          ((tenant.service backend).isValid_resumeLoad hload hlists wait)
      next => exact h
  | drop index =>
      simp only [act]
      split
      next => exact herased index
      next => exact herased index
      next => exact h

-- The same move comes to the same on two stores that differ elsewhere.
structure Outcome.Agrees (layout : Layout) (x y : Outcome) : Prop where
  tenant : x.tenant = y.tenant
  report : x.report = y.report
  backend : x.backend.Agrees layout y.backend

theorem agrees_afterSave {x y : Service × Service.SaveProgress} (h : Service.Agrees layout x y)
    (calls : List Call) : (afterSave calls x).Agrees layout (afterSave calls y) := by
  obtain ⟨service, progress⟩ := y
  obtain ⟨next, other⟩ := x
  obtain ⟨hservice, rfl, hbackend⟩ := h
  dsimp only at hservice hbackend
  rw [hservice]
  cases other <;> exact ⟨rfl, rfl, hbackend⟩

theorem agrees_afterLoad {x y : Service × Service.LoadProgress} (h : Service.Agrees layout x y)
    (calls : List Call) : (afterLoad calls x).Agrees layout (afterLoad calls y) := by
  obtain ⟨service, progress⟩ := y
  obtain ⟨next, other⟩ := x
  obtain ⟨hservice, rfl, hbackend⟩ := h
  dsimp only at hservice hbackend
  rw [hservice]
  cases other <;> exact ⟨rfl, rfl, hbackend⟩

theorem agrees_act (h : tenant.IsWithin layout) (hasks : AsksValid tenant.calls) {a b : Backend}
    (hagrees : a.Agrees layout b) (move : Move) :
    (tenant.act a move).Agrees layout (tenant.act b move) := by
  obtain ⟨rfl, -, hsaves⟩ := h
  cases move with
  | edit change => exact ⟨rfl, rfl, hagrees⟩
  | beginSave now =>
      exact agrees_afterSave (Service.agrees_beginSave hagrees (tenant.service a) now) _
  | beginLoad now =>
      have hbegun : Service.Agrees tenant.layout ((tenant.service a).beginLoad now)
          ((tenant.service b).beginLoad now) :=
        Service.agrees_continueLoad hagrees rfl (tenant.service a) now _
      exact agrees_afterLoad hbegun _
  | wake index =>
      simp only [act]
      split
      next save wait hcall =>
        have hsave := hsaves save wait (List.mem_of_getElem? hcall)
        exact agrees_afterSave ((tenant.service a).agrees_resumeSave hsave hagrees wait) _
      next load wait hcall =>
        have hload := hasks load wait (List.mem_of_getElem? hcall)
        exact agrees_afterLoad ((tenant.service a).agrees_resumeLoad hload hagrees wait) _
      next => exact ⟨rfl, rfl, hagrees⟩
  | drop index =>
      simp only [act]
      split
      next => exact ⟨rfl, rfl, hagrees⟩
      next => exact ⟨rfl, rfl, hagrees⟩
      next => exact ⟨rfl, rfl, hagrees⟩

end Steps

end Tenant

end ShardedLedger
