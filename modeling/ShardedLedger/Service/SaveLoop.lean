import ShardedLedger.Service.Timing

namespace ShardedLedger

-- The ticks that start a save each, one period apart.
structure Ticker where
  period : Nat
  due : Nat
  deriving DecidableEq

namespace Ticker

-- There is no tick at the start itself, and no shorter period than a millisecond.
def start (interval : Nat) : Ticker := ⟨max 1 interval, max 1 interval⟩

-- How late a tick may be without those behind it being moved.
def tolerance : Nat := 5

-- After a tick that comes too late the next one is at the next multiple of the period.
def afterTick (ticker : Ticker) (now : Nat) : Ticker :=
  if ticker.due + tolerance < now then
    { ticker with due := now + ticker.period - (now - ticker.due) % ticker.period }
  else { ticker with due := ticker.due + ticker.period }

end Ticker

namespace Service

-- Goes on with a save until it ends, unless the loop is stopped before; also when it ended.
def saveUntil (stop : Nat) : Nat → Nat → Service × SaveProgress → Service × Option Nat
  | calls + 1, _, (service, .waiting save wait) =>
      if stop ≤ wait.ends then (service.dropSave, none)
      else saveUntil stop calls wait.ends (service.resumeSave save wait)
  | _, now, (service, _) => (service, some now)

-- Every round takes at least a millisecond.
def runSaveLoop (stop : Nat) : Nat → Nat → Ticker → Service → Service
  | 0, _, _, service => service
  | rounds + 1, now, ticker, service =>
      let now := max now ticker.due
      if stop ≤ now then service
      else
        match saveUntil stop 2 now (service.beginSave now) with
        | (service, none) => service
        | (service, some later) => runSaveLoop stop rounds later (ticker.afterTick now) service

-- Saves at every tick until the loop is stopped, so many milliseconds from now.
def saveLoop (service : Service) (stop : Nat) : Service :=
  runSaveLoop stop (stop + 1) 0 (.start service.settings.saveInterval) service

end Service

end ShardedLedger
