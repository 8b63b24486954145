import ShardedLedger.Service.Basic

namespace ShardedLedger

-- A wait for the store: when it will answer, and when the time for that is up.
structure Wait where
  answerAt : Nat
  deadline : Nat
  deriving DecidableEq

namespace Wait

def ends (wait : Wait) : Nat := min wait.answerAt wait.deadline

-- An answer that comes just when the time is up still counts.
def isInVain (wait : Wait) : Bool := wait.deadline < wait.answerAt

end Wait

namespace Service

-- A call to the store that is made now.
def wait (service : Service) (now deadline : Nat) : Wait :=
  ⟨now + service.backend.delay, deadline⟩

def deadline (service : Service) (now : Nat) : Nat := now + service.settings.saveTimeout

section Saving

-- A save under way, or how it ended. Nothing comes of a save that finds another one under way.
inductive SaveProgress where
  | skipped
  | finished (result : SaveResult)
  | waiting (save : Save) (wait : Wait)

def endSave (service : Service) (result : SaveResult) : Service × SaveProgress :=
  ({ service with turnstile := service.turnstile.leave }, .finished (result.record Latency.total))

def continueSave (service : Service) (now deadline : Nat) : Save.Next → Service × SaveProgress
  | .done result => service.endSave result
  | .waiting save =>
      ({ service with
          backend := save.call service.backend
          turnstile := service.turnstile.move save.phase },
        .waiting save (service.wait now deadline))

def beginSave (service : Service) (now : Nat) : Service × SaveProgress :=
  match service.turnstile.tryEnter with
  | none => (service, .skipped)
  | some turnstile =>
      continueSave { service with turnstile := turnstile.move .inPhase1 } now (service.deadline now)
        (Save.start service.ledger)

-- Goes on with a save at the end of its wait.
def resumeSave (service : Service) (save : Save) (wait : Wait) : Service × SaveProgress :=
  if wait.isInVain then service.endSave .timedOut
  else
    let (backend, next) := save.next service.layout service.backend
    continueSave { service with backend } wait.answerAt wait.deadline next

-- Whatever a save still waits for, dropping it frees the way for the next one.
def dropSave (service : Service) : Service := { service with turnstile := service.turnstile.leave }

-- A save with nothing else going on asks the store twice at most.
def finishSave : Nat → Service × SaveProgress → Service × Option SaveResult
  | calls + 1, (service, .waiting save wait) => finishSave calls (service.resumeSave save wait)
  | _, (service, .finished result) => (service, some result)
  | _, (service, _) => (service, none)

def save (service : Service) : Service × Option SaveResult := finishSave 2 (service.beginSave 0)

end Saving

section Loading

inductive LoadProgress where
  | finished (result : SaveResult)
  | waiting (load : Load) (wait : Wait)

def endLoad (service : Service) (result : SaveResult) : Service × LoadProgress :=
  (service, .finished (result.record Latency.total))

-- Only a load without any failure changes the ledger.
def continueLoad (service : Service) (now deadline : Nat) : Load.Next → Service × LoadProgress
  | .done (.ok ledger) => endLoad { service with ledger } .success
  | .done (.error result) => service.endLoad result
  | .waiting load =>
      ({ service with backend := load.call service.backend },
        .waiting load (service.wait now deadline))

def beginLoad (service : Service) (now : Nat) : Service × LoadProgress :=
  service.continueLoad now (service.deadline now) (.waiting .readingActive)

def resumeLoad (service : Service) (load : Load) (wait : Wait) : Service × LoadProgress :=
  if wait.isInVain then service.endLoad .timedOut
  else
    service.continueLoad wait.answerAt wait.deadline (load.next service.layout service.backend)

-- A load asks the store three times at most.
def finishLoad : Nat → Service × LoadProgress → Service × SaveResult
  | calls + 1, (service, .waiting load wait) => finishLoad calls (service.resumeLoad load wait)
  | _, (service, .finished result) => (service, result)
  | _, (service, .waiting _ _) => (service, .timedOut)

def load (service : Service) : Service × SaveResult := finishLoad 3 (service.beginLoad 0)

end Loading

end Service

end ShardedLedger
