import ShardedLedger.Service.Timing

namespace ShardedLedger

-- What runs beside other things from a point of time on: a save, a look at where saves stand,
-- or a request.
inductive Task where
  | save
  | probe
  | route (method : Method) (path : String) (query headers : SortedMap String String)
      (body : String)

inductive TaskResult where
  | save (result : Option SaveResult)
  | probe (turnstile : Turnstile)
  | route (outcome : Except (Failure RouteError) String)

-- A task before its start, a save under way, or the result of either. Who waits has a turn:
-- waits are numbered in the order in which they begin, for a save both the wait for its end and
-- the present one for the store.
inductive Activity where
  | waiting (start turn : Nat) (task : Task)
  | saving (save : Save) (wait : Wait) (begun asked : Nat)
  | done (result : TaskResult)

namespace Activity

-- When an activity goes on, and its turn then.
def wake? : Activity → Option (Nat × Nat)
  | .waiting start turn _ => some (start, turn)
  | .saving _ wait begun asked =>
      if wait.answerAt < wait.deadline then some (wait.answerAt, asked)
      else some (wait.deadline, begun)
  | .done _ => none

def result? : Activity → Option TaskResult
  | .done result => some result
  | _ => none

-- A wait that is over at once is none; there are two at most.
def ofSave (now begun turn : Nat) : Nat → Service × Service.SaveProgress → Service × Activity
  | waits + 1, (service, .waiting save wait) =>
      if wait.ends ≤ now then ofSave now begun turn waits (service.resumeSave save wait)
      else (service, .saving save wait begun turn)
  | 0, (service, .waiting save wait) => (service, .saving save wait begun turn)
  | _, (service, .skipped) => (service, .done (.save none))
  | _, (service, .finished result) => (service, .done (.save (some result)))

def start (now turn : Nat) (service : Service) : Task → Service × Activity
  | .save => ofSave now turn turn 2 (service.beginSave now)
  | .probe => (service, .done (.probe service.turnstile))
  | .route method path query headers body =>
      let (service, outcome) := service.route method path query headers body
      (service, .done (.route outcome))

def advance (turn : Nat) (service : Service) : Activity → Service × Activity
  | .waiting now _ task => start now turn service task
  | .saving save wait begun _ =>
      ofSave wait.ends begun turn 2 (service.resumeSave save wait)
  | .done result => (service, .done result)

def isBefore (a b : Nat × Nat) : Bool := a.1 < b.1 || (a.1 = b.1 && a.2 < b.2)

def earlier : Option (Nat × Nat) → Option (Nat × Nat) → Option (Nat × Nat)
  | none, b => b
  | a, none => a
  | some a, some b => if isBefore b a then some b else some a

-- What goes on next: of all that go on at the earliest time the one that has waited longest.
def next (activities : List Activity) : Option (Nat × Nat) :=
  activities.foldl (fun moment activity => earlier moment activity.wake?) none

def advanceAt (moment : Nat × Nat) (turn : Nat) (service : Service) :
    List Activity → Service × List Activity
  | [] => (service, [])
  | activity :: rest =>
      if activity.wake? = some moment then
        let (service, activity) := activity.advance turn service
        (service, activity :: rest)
      else
        let (service, rest) := advanceAt moment turn service rest
        (service, activity :: rest)

def run : Nat → Nat → Service → List Activity → Service × List Activity
  | 0, _, service, activities => (service, activities)
  | steps + 1, turn, service, activities =>
      match next activities with
      | none => (service, activities)
      | some moment =>
          let (service, activities) := advanceAt moment turn service activities
          run steps (turn + 1) service activities

-- All tasks are there from the beginning; one that need not wait starts as it comes in.
def startAll : Nat → Service → List (Nat × Task) → Service × List Activity
  | _, service, [] => (service, [])
  | turn, service, (time, task) :: rest =>
      let (service, activity) :=
        if time = 0 then start 0 turn service task else (service, .waiting time turn task)
      let (service, activities) := startAll (turn + 1) service rest
      (service, activity :: activities)

end Activity

namespace Service

-- Runs the tasks beside each other to their ends. None of them takes more than three steps.
def runTasks (service : Service) (tasks : List (Nat × Task)) : Service × List TaskResult :=
  let (service, activities) := Activity.startAll 0 service tasks
  let (service, activities) :=
    Activity.run (3 * tasks.length) tasks.length service activities
  (service, activities.filterMap Activity.result?)

end Service

end ShardedLedger
